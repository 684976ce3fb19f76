import StreamTrace.Debugger.Bridge
import StreamTrace.Chain.Basic

/-!
# Probes

The pieces from which the handlers of a trace are built. Collecting puts a collector behind a
stream, so that every element that passes is recorded in a map with the logical time. Formatting
turns what was recorded into arrays in the debuggee.
-/

namespace StreamTrace

/-- What the handlers of a trace share: the bridge, and the counter in the debuggee that serves as
the logical clock. -/
structure Probe where
  bridge : Bridge
  clock : Value

namespace Probe

/-- A new clock, which stands at 0. -/
def new (bridge : Bridge) : BridgeRoutine Probe := do
  let clock ← bridge.construct ClassName.atomicInteger "()V" []
  return { bridge, clock }

def newMap (p : Probe) : BridgeRoutine Value := p.bridge.construct ClassName.linkedHashMap "()V" []

/-- A collector that records in `map`, unless that is null, and advances the clock if `tick`. -/
def newCollector (p : Probe) (map : Value) (tick : Bool) : BridgeRoutine Value :=
  p.bridge.construct HelperClass.collector.name HelperClass.collectorConstructor
    [map, p.clock, .boolean tick]

/-- The stream behind a `peek` by that collector. -/
def peek (p : Probe) (stream : Value) (element : ElementType) (collector : Value) :
    BridgeRoutine Value :=
  p.bridge.invoke stream "peek" element.peekDescriptor [collector]

/-- The stream that records its elements, and the map it records them in. Without an element type
and for what is no object, nothing changes. -/
def collect (p : Probe) (element : Option ElementType) (stream : Value) (tick : Bool) :
    BridgeRoutine (Value × Option Value) := do
  match element, stream.objectId? with
  | some element, some _ =>
    let map ← p.newMap
    let collector ← p.newCollector map tick
    let peeked ← p.peek stream element collector
    return (peeked, some map)
  | _, _ => return (stream, none)

def sequentialDescriptor : String := "()Ljava/util/stream/BaseStream;"

def sequential (p : Probe) (stream : Value) : BridgeRoutine Value :=
  p.bridge.invoke stream "sequential" sequentialDescriptor []

/-- The recorded times and elements as an array of two arrays. -/
def formatMap (p : Probe) (element : ElementType) (map : Value) : BridgeRoutine Value := do
  Bridge.requireInstanceOf map ClassName.map
  p.bridge.invokeStatic HelperClass.utils.name element.formatMethod HelperClass.formatDescriptor
    [map]

/-- An array of two empty arrays. -/
def emptySide (p : Probe) : BridgeRoutine Value := do
  let keys ← p.bridge.arrayOf "int" []
  let values ← p.bridge.arrayOf ClassName.object []
  p.bridge.array [keys, values]

def packSide (p : Probe) (element : Option ElementType) (map : Option Value) :
    BridgeRoutine Value :=
  match element, map with
  | some element, some map => p.formatMap element map
  | _, _ => p.emptySide

/-- An array with the result in it, or with null when there is none. -/
def packResult (p : Probe) (result : Option Value) : BridgeRoutine Value :=
  let empty := p.bridge.construct s!"{ClassName.object}[]" "(I)V" [.int 1]
  match result with
  | none => empty
  | some .void => empty
  | some v => p.bridge.array [v]

/-- The descriptor of `orElse` on a class of optionals, with the signature of its argument. -/
def orElse? : String → Option (String × String)
  | "java.util.Optional" => some ("(Ljava/lang/Object;)Ljava/lang/Object;", "Ljava/lang/Object;")
  | "java.util.OptionalInt" => some ("(I)I", "I")
  | "java.util.OptionalLong" => some ("(J)J", "J")
  | "java.util.OptionalDouble" => some ("(D)D", "D")
  | _ => none

/-- Whether an optional holds a value, and that value or a default. No result counts as an empty
optional. -/
def contentOfOptional (p : Probe) (result : Option Value) : BridgeRoutine (Value × Value) := do
  match result.filter (·.objectId?.isSome) with
  | none => return (.boolean false, .null)
  | some optional =>
    let typeName ← Bridge.typeOf optional
    match orElse? typeName with
    | none => throw (.incorrectValueType "java.util.Optional" typeName)
    | some (orElse, argument) =>
      let present ← p.bridge.invoke optional "isPresent" "()Z" []
      let v ← p.bridge.invoke optional "orElse" orElse [Value.ofSignature argument]
      return (present, v)

end Probe

end StreamTrace
