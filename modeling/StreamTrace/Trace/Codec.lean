import StreamTrace.Trace.Value
import StreamTrace.Json.Record

/-!
# Traces in JSON

The written form of a finished trace. A value names its kind beside its content, and a
floating-point number without a decimal form is written as null, which is not read back as one.
-/

namespace StreamTrace

namespace Json

/-- A double as a JSON number. -/
def ofDouble (bits : Nat) : Json :=
  if FloatFormat.double.isFinite bits then .float (UInt64.ofNat bits) else .null

/-- The nearest single to a JSON number. -/
def asSingle? : Json → Option UInt32
  | .int n => some (UInt32.ofNat (FloatFormat.single.ofInt n))
  | .float bits => some (UInt32.ofNat (FloatFormat.double.convert .single bits.toNat))
  | _ => none

/-- The nearest double to a JSON number. -/
def asDouble? : Json → Option UInt64
  | .int n => some (UInt64.ofNat (FloatFormat.double.ofInt n))
  | .float bits => some bits
  | _ => none

/-- The kind of an enumeration's value and its content. An array holds the two in this order. -/
def withContent? (buffered : Bool) : Json → Option (String × Option Json)
  | .obj members => do
    let kind ← (find? members "kind").bind (variantName? buffered)
    return (kind, find? members "value")
  | .arr [kind, content] => do return (← kind.variantName? buffered, some content)
  | _ => none

/-- Content that has to be missing or null. -/
def isVoid : Option Json → Bool
  | none => true
  | some .null => true
  | some _ => false

end Json

open Json (record field listOf)

namespace TraceValue

def toJson (v : TraceValue) : Json :=
  let content (kind : String) (value : Json) : Json := .obj [("kind", .str kind), ("value", value)]
  match v with
  | null => .obj [("kind", .str "null")]
  | boolean v => content "boolean" (.bool v)
  | byte v => content "byte" (.int v.toInt)
  | char v => content "char" (.int v.toNat)
  | short v => content "short" (.int v.toInt)
  | int v => content "int" (.int v.toInt)
  | long v => content "long" (.int v.toInt)
  | float bits => content "float" (Json.ofDouble (FloatFormat.single.convert .double bits.toNat))
  | double bits => content "double" (Json.ofDouble bits.toNat)
  | string s => content "string" (.str s)
  | object typeName id =>
    content "object" (.obj [("typeName", .str typeName), ("id", .int id)])

/-- An object's type and identifier, which are found by name only. -/
def objectOfJson? : Json → Option TraceValue
  | .obj members => record (do
      let typeName ← field "typeName" Json.asString?
      let id ← field "id" (Json.natBelow? 64)
      return object typeName id) (.obj members)
  | _ => none

def ofContent? (kind : String) (content : Json) : Option TraceValue :=
  match kind with
  | "boolean" => content.asBool?.map boolean
  | "byte" => (content.signed? 8).map fun n => byte (Int8.ofInt n)
  | "char" => (content.natBelow? 16).map fun n => char (UInt16.ofNat n)
  | "short" => (content.signed? 16).map fun n => short (Int16.ofInt n)
  | "int" => (content.signed? 32).map fun n => int (Int32.ofInt n)
  | "long" => (content.signed? 64).map fun n => long (Int64.ofInt n)
  | "float" => content.asSingle?.map float
  | "double" => content.asDouble?.map double
  | "string" => content.asString?.map string
  | "object" => objectOfJson? content
  | _ => none

def ofJson? (buffered : Bool) (j : Json) : Option TraceValue := do
  let (kind, content) ← j.withContent? buffered
  if kind = "null" then
    if Json.isVoid content then some null else none
  else ofContent? kind (← content)

end TraceValue

namespace TracedValue

def toJson (v : TracedValue) : Json :=
  .obj [("time", .int v.time.toInt), ("value", v.value.toJson)]

def ofJson? : Json → Option TracedValue := record do
  let time ← field "time" (Json.signed? 32)
  let value ← field "value" (TraceValue.ofJson? false)
  return { time := Int32.ofInt time, value }

end TracedValue

namespace StageTrace

def toJson (s : StageTrace) : Json :=
  .obj [("call", .str s.call), ("before", .arr (s.before.map TracedValue.toJson)),
    ("after", .arr (s.after.map TracedValue.toJson))]

def ofJson? : Json → Option StageTrace := record do
  let call ← field "call" Json.asString?
  let before ← field "before" (listOf TracedValue.ofJson?)
  let after ← field "after" (listOf TracedValue.ofJson?)
  return { call, before, after }

end StageTrace

namespace TerminalPayload

def toJson : TerminalPayload → Json
  | none => .obj [("kind", .str "none")]
  | matched result => .obj [("kind", .str "match"), ("result", result.toJson)]
  | optional present value =>
    .obj [("kind", .str "optional"), ("present", .bool present), ("value", value.toJson)]
  | collection time => .obj [("kind", .str "collection"), ("time", .int time.toInt)]

def ofJson? (j : Json) : Option TerminalPayload := do
  let (kind, j) ← j.tagged?
  match kind with
  | "none" =>
    record (return none) j
  | "match" =>
    record (do
      let result ← field "result" (TraceValue.ofJson? true)
      return matched result) j
  | "optional" =>
    record (do
      let present ← field "present" Json.asBool?
      let value ← field "value" (TraceValue.ofJson? true)
      return optional present value) j
  | "collection" =>
    record (do
      let time ← field "time" (Json.signed? 32)
      return collection (Int32.ofInt time)) j
  | _ => failure

end TerminalPayload

namespace Outcome

def toJson : Outcome → Json
  | returned v => .obj [("kind", .str "returned"), ("value", v.toJson)]
  | thrown v => .obj [("kind", .str "thrown"), ("value", v.toJson)]
  | void => .obj [("kind", .str "void")]

def ofJson? (j : Json) : Option Outcome := do
  let (kind, content) ← j.withContent? false
  match kind with
  | "returned" => (content.bind (TraceValue.ofJson? false)).map returned
  | "thrown" => (content.bind (TraceValue.ofJson? false)).map thrown
  | "void" => if Json.isVoid content then some void else none
  | _ => none

end Outcome

namespace ChainTrace

def toJson (t : ChainTrace) : Json :=
  .obj [("stages", .arr (t.stages.map StageTrace.toJson)), ("terminal", t.terminal.toJson),
    ("outcome", t.outcome.toJson), ("elapsedMs", .int t.elapsedMs.toInt)]

def ofJson? : Json → Option ChainTrace := record do
  let stages ← field "stages" (listOf StageTrace.ofJson?)
  let terminal ← field "terminal" TerminalPayload.ofJson?
  let outcome ← field "outcome" Outcome.ofJson?
  let elapsedMs ← field "elapsedMs" (Json.signed? 64)
  return { stages, terminal, outcome, elapsedMs := Int64.ofInt elapsedMs }

end ChainTrace

end StreamTrace
