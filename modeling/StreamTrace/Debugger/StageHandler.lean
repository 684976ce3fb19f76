import StreamTrace.Debugger.Probe

/-!
# Stage handlers

What is done at each call of a chain. A handler sees the arguments of the call, the stream that
enters it and the value that it returns, and may put others in their place; afterwards it tells
what it saw. Its steps yield the handler that goes on, so a step that fails changes nothing.
-/

namespace StreamTrace

inductive HandlerKind where
  | sourcePassthrough
  | peekIntermediate
  | peekTerminal
  | matchShortCircuit
  | optionalProducing
  | toCollection
  | parallelMarker
  deriving Repr, DecidableEq

namespace HandlerKind

def label : HandlerKind → String
  | sourcePassthrough => "SourcePassthrough"
  | peekIntermediate => "PeekIntermediate"
  | peekTerminal => "PeekTerminal"
  | matchShortCircuit => "MatchShortCircuit"
  | optionalProducing => "OptionalProducing"
  | toCollection => "ToCollection"
  | parallelMarker => "ParallelMarker"

def isTerminal : HandlerKind → Bool
  | sourcePassthrough => false
  | peekIntermediate => false
  | peekTerminal => true
  | matchShortCircuit => true
  | optionalProducing => true
  | toCollection => true
  | parallelMarker => false

end HandlerKind

/-- The maps that record what enters and what leaves a call. -/
structure Peek where
  typeBefore : Option ElementType
  typeAfter : Option ElementType
  before : Option Value := none
  after : Option Value := none
  deriving Repr, DecidableEq

namespace Peek

def beforeCall (k : Peek) (p : Probe) (stream : Value) : BridgeRoutine (Peek × Value) := do
  let (stream, map) ← p.collect k.typeBefore stream false
  return ({ k with before := map.or k.before }, stream)

def afterCall (k : Peek) (p : Probe) (stream : Value) : BridgeRoutine (Peek × Value) := do
  let (stream, map) ← p.collect k.typeAfter stream true
  return ({ k with after := map.or k.after }, stream)

/-- The array of what entered and what left. -/
def result (k : Peek) (p : Probe) : BridgeRoutine Value := do
  let before ← p.packSide k.typeBefore k.before
  let after ← p.packSide k.typeAfter k.after
  p.bridge.array [before, after]

end Peek

inductive StageHandler where
  /-- The call that produces the stream. Each of its elements advances the clock. -/
  | source (element : Option ElementType) (sequential : Bool)
  | intermediate (k : Peek)
  /-- A call that makes the stream parallel, which is undone behind it. -/
  | parallel (k : Peek)
  | terminal (k : Peek) (result : Option Value)
  /-- A test of the elements, whose predicate is wrapped. -/
  | matching (element : Option ElementType) (predicateType : String)
      (maps : Option (Value × Value)) (result : Option Value)
  | optional (k : Peek) (result : Option Value)
  | collection (k : Peek) (result : Option Value)
  deriving Repr, DecidableEq

namespace StageHandler

def forIntermediate (call : StreamCall) : StageHandler :=
  let k : Peek := { typeBefore := call.typeBefore, typeAfter := call.typeAfter }
  if call.name = "parallel" then parallel k else intermediate k

def isMatch (name : String) : Bool := ["anyMatch", "allMatch", "noneMatch"].contains name

def producesOptional (name : String) (arity : Nat) : Bool :=
  ["findFirst", "findAny", "min", "max"].contains name || (name == "reduce" && arity == 1)

def makesCollection (name : String) : Bool := ["collect", "toList", "toArray"].contains name

def forTerminal (call : StreamCall) : StageHandler :=
  let k : Peek := { typeBefore := call.typeBefore, typeAfter := none }
  if isMatch call.name then matching call.typeBefore (call.arguments.head?.getD "") none none
  else if producesOptional call.name call.arguments.length then optional k none
  else if makesCollection call.name then collection k none
  else terminal k none

def kind : StageHandler → HandlerKind
  | source _ _ => .sourcePassthrough
  | intermediate _ => .peekIntermediate
  | parallel _ => .parallelMarker
  | terminal _ _ => .peekTerminal
  | matching _ _ _ _ => .matchShortCircuit
  | optional _ _ => .optionalProducing
  | collection _ _ => .toCollection

/-- The helper class that wraps the predicate of this call. -/
def matcher? : StageHandler → Option HelperClass
  | matching _ predicateType _ _ => (HelperClass.matcherFor? predicateType).map (·.1)
  | _ => none

/-- The arguments to call with. -/
def spliceArguments (h : StageHandler) (p : Probe) (args : List Value) :
    BridgeRoutine (StageHandler × List Value) := do
  match h with
  | matching element predicateType _ result =>
    match args with
    | [predicate] =>
      match HelperClass.matcherFor? predicateType with
      | none => throw (.incorrectValueType ClassName.predicate predicateType)
      | some (matcher, constructor) =>
        let before ← p.newMap
        let after ← p.newMap
        let wrapped ←
          p.bridge.construct matcher.name constructor [before, after, p.clock, predicate]
        return (matching element predicateType (some (before, after)) result, [wrapped])
    | _ =>
      let count := args.length
      throw (.tracing s!"match call expects a single predicate argument, got {count}")
  | _ => return (h, args)

/-- The stream to call on. -/
def beforeCall (h : StageHandler) (p : Probe) (stream : Value) :
    BridgeRoutine (StageHandler × Value) := do
  let wrapped (k : Peek) (make : Peek → StageHandler) : BridgeRoutine (StageHandler × Value) := do
    let (k, stream) ← k.beforeCall p stream
    return (make k, stream)
  match h with
  | source _ _ => return (h, stream)
  | matching _ _ _ _ => return (h, stream)
  | intermediate k => wrapped k intermediate
  | parallel k => wrapped k parallel
  | terminal k result => wrapped k (terminal · result)
  | optional k result => wrapped k (optional · result)
  | collection k result => wrapped k (collection · result)

/-- The value to return instead of `returned`. The consuming call's value is noted and kept. -/
def afterCall (h : StageHandler) (p : Probe) (returned : Value) :
    BridgeRoutine (StageHandler × Value) := do
  match h with
  | source element sequential =>
    if returned.objectId?.isNone then return (h, returned)
    else
      let stream ← if sequential then p.sequential returned else pure returned
      let ticker ← p.newCollector .null true
      let stream ← p.peek stream (element.getD .object) ticker
      return (h, stream)
  | intermediate k =>
    let (k, stream) ← k.afterCall p returned
    return (intermediate k, stream)
  | parallel k =>
    let stream ← if returned.objectId?.isSome then p.sequential returned else pure returned
    let (k, stream) ← k.afterCall p stream
    return (parallel k, stream)
  | terminal k _ => return (terminal k (some returned), returned)
  | matching element predicateType maps _ =>
    return (matching element predicateType maps (some returned), returned)
  | optional k _ => return (optional k (some returned), returned)
  | collection k _ => return (collection k (some returned), returned)

/-- An array in the debuggee that tells what the handler saw. The producing call has none. -/
def result (h : StageHandler) (p : Probe) : BridgeRoutine (Option Value) := do
  match h with
  | source _ _ => return none
  | intermediate k => return some (← k.result p)
  | parallel k => return some (← k.result p)
  | terminal k result =>
    let info ← k.result p
    let wrapped ← p.packResult result
    return some (← p.bridge.array [info, wrapped])
  | matching element _ maps result =>
    let before ← p.packSide element (maps.map (·.1))
    let after ← p.packSide element (maps.map (·.2))
    let info ← p.bridge.array [before, after]
    let wrapped ← p.packResult result
    let payload ← p.bridge.array [info, wrapped]
    return some (← p.bridge.array [payload, wrapped])
  | optional k result =>
    let info ← k.result p
    let wrapped ← p.packResult result
    let (present, value) ← p.contentOfOptional result
    let present ← p.bridge.array [present]
    let value ← p.bridge.array [value]
    let content ← p.bridge.array [present, value]
    let payload ← p.bridge.array [info, content]
    return some (← p.bridge.array [payload, wrapped])
  | collection k result =>
    let info ← k.result p
    let wrapped ← p.packResult result
    let time ← p.bridge.invoke p.clock "get" "()I" []
    let time ← p.bridge.arrayOf "int" [time]
    let payload ← p.bridge.array [info, time]
    return some (← p.bridge.array [payload, wrapped])

end StageHandler

end StreamTrace
