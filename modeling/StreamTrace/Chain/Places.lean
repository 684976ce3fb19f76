import StreamTrace.Chain.Codec
import StreamTrace.Trace.Error

/-!
# Breakpoint places

The methods at which a chain is stopped: the method that produces the stream, if a call does, and
the library method behind every call of the chain. `streamMethod?` is the table of the stream
interfaces; a call whose name and number of arguments are not in it has no place.
-/

namespace StreamTrace

/-- One method per call of a chain. -/
structure Places where
  source : Option MethodSignature
  intermediate : List MethodSignature
  terminal : MethodSignature
  deriving Repr, DecidableEq

namespace Places

def all (p : Places) : List MethodSignature := p.source.toList ++ p.intermediate ++ [p.terminal]

def toJson (p : Places) : Json :=
  .obj [("qualifierExpressionMethod", Json.ofOption MethodSignature.toJson p.source),
    ("intermediateStepsMethods", .arr (p.intermediate.map MethodSignature.toJson)),
    ("terminationOperationMethod", p.terminal.toJson)]

open Json in
def ofJson? : Json → Option Places := record do
  let source ← optionalField "qualifierExpressionMethod" MethodSignature.ofJson?
  let intermediate ← field "intermediateStepsMethods" (listOf MethodSignature.ofJson?)
  let terminal ← field "terminationOperationMethod" MethodSignature.ofJson?
  return { source, intermediate, terminal }

end Places

/-! ## The stream interfaces -/

def baseStream : String := "java.util.stream.BaseStream"

namespace ElementType

/-- The return type of a method that both kinds of streams share, where `own` is the stream
interface itself. -/
def sharedMethod? (own : String) : String → Nat → Option String
  | "map", 1 => some own
  | "filter", 1 => some own
  | "flatMap", 1 => some own
  | "sorted", 0 => some own
  | "distinct", 0 => some own
  | "limit", 1 => some own
  | "skip", 1 => some own
  | "takeWhile", 1 => some own
  | "dropWhile", 1 => some own
  | "peek", 1 => some own
  | "mapToInt", 1 => some int.streamType
  | "mapToLong", 1 => some long.streamType
  | "mapToDouble", 1 => some double.streamType
  | "count", 0 => some "long"
  | "anyMatch", 1 => some "boolean"
  | "allMatch", 1 => some "boolean"
  | "noneMatch", 1 => some "boolean"
  | "collect", 3 => some "java.lang.Object"
  | "forEach", 1 => some "void"
  | "forEachOrdered", 1 => some "void"
  | _, _ => none

/-- What else streams of objects have. -/
def objectMethod? : String → Nat → Option String
  | "mapMulti", 1 => some object.streamType
  | "sorted", 1 => some object.streamType
  | "flatMapToInt", 1 => some int.streamType
  | "flatMapToLong", 1 => some long.streamType
  | "flatMapToDouble", 1 => some double.streamType
  | "findFirst", 0 => some "java.util.Optional"
  | "findAny", 0 => some "java.util.Optional"
  | "min", 1 => some "java.util.Optional"
  | "max", 1 => some "java.util.Optional"
  | "reduce", 1 => some "java.util.Optional"
  | "collect", 1 => some "java.lang.Object"
  | "reduce", 2 => some "java.lang.Object"
  | "reduce", 3 => some "java.lang.Object"
  | "toList", 0 => some "java.util.List"
  | "toArray", 0 => some "java.lang.Object[]"
  | "toArray", 1 => some "java.lang.Object[]"
  | _, _ => none

/-- What else streams of a primitive type have. -/
def primitiveMethod? (own keyword optional statistics : String) : String → Nat → Option String
  | "parallel", 0 => some own
  | "sequential", 0 => some own
  | "mapToObj", 1 => some object.streamType
  | "boxed", 0 => some object.streamType
  | "asLongStream", 0 => some long.streamType
  | "asDoubleStream", 0 => some double.streamType
  | "sum", 0 => some keyword
  | "reduce", 2 => some keyword
  | "findFirst", 0 => some optional
  | "findAny", 0 => some optional
  | "min", 0 => some optional
  | "max", 0 => some optional
  | "reduce", 1 => some optional
  | "average", 0 => some "java.util.OptionalDouble"
  | "summaryStatistics", 0 => some statistics
  | "toArray", 0 => some s!"{keyword}[]"
  | _, _ => none

/-- Methods that a stream interface only inherits. -/
def inheritedMethod (t : ElementType) : String → Nat → Bool
  | "parallel", 0 => t = object
  | "sequential", 0 => t = object
  | "unordered", 0 => true
  | "onClose", 1 => true
  | _, _ => false

def ownMethod? : ElementType → String → Nat → Option String
  | object => objectMethod?
  | int =>
    primitiveMethod? int.streamType "int" "java.util.OptionalInt" "java.util.IntSummaryStatistics"
  | long =>
    primitiveMethod? long.streamType "long" "java.util.OptionalLong"
      "java.util.LongSummaryStatistics"
  | double =>
    primitiveMethod? double.streamType "double" "java.util.OptionalDouble"
      "java.util.DoubleSummaryStatistics"

/-- The class that declares a method of the stream interface, and the method's return type. -/
def streamMethod? (t : ElementType) (name : String) (arity : Nat) : Option (String × String) :=
  if t.inheritedMethod name arity then some (baseStream, baseStream)
  else
    ((sharedMethod? t.streamType name arity).or (t.ownMethod? name arity)).map
      fun result => (t.streamType, result)

end ElementType

/-! ## Places of a chain -/

/-- The method behind a call. -/
def StreamCall.place (c : StreamCall) : Except TraceError MethodSignature :=
  match ElementType.ofStreamType? c.declaringType with
  | none => throw (.placeNotFound c.name "declaring type is not a stream interface")
  | some t =>
    match t.streamMethod? c.name c.arguments.length with
    | none => throw (.placeNotFound c.name "no such stream method")
    | some (containingClass, returnType) =>
      return { containingClass, name := c.name, argumentTypes := c.arguments, returnType }

def Qualifier.method? : Qualifier → Option MethodSignature
  | var _ _ => none
  | call _ signature => some signature

/-- The places of all calls; the first call without one decides the error. -/
def StreamChain.places (c : StreamChain) : Except TraceError Places := do
  let intermediate ← c.intermediate.mapM StreamCall.place
  let terminal ← c.terminal.place
  return { source := c.qualifier.method?, intermediate, terminal }

end StreamTrace
