import StreamTrace.Jvm.MethodSignature
import StreamTrace.Trace.Error

/-!
# Stream chains

A chain is the expression to be traced: what its stream comes from, the calls that transform the
stream, and the call that consumes it. Every call names its erased parameter types, the stream
interface it is made on and, as far as they are known, the types of the elements that enter and
leave it.
-/

namespace StreamTrace

/-- How the elements of a stream are represented: objects, or one of three primitive kinds. -/
inductive ElementType where
  | object | int | long | double
  deriving Repr, DecidableEq

namespace ElementType

def all : List ElementType := [object, int, long, double]

/-- The class of a boxed element. -/
def typeName : ElementType → String
  | object => "java.lang.Object"
  | int => "java.lang.Integer"
  | long => "java.lang.Long"
  | double => "java.lang.Double"

/-- The stream interface for such elements. -/
def streamType : ElementType → String
  | object => "java.util.stream.Stream"
  | int => "java.util.stream.IntStream"
  | long => "java.util.stream.LongStream"
  | double => "java.util.stream.DoubleStream"

def ofTypeName? (name : String) : Option ElementType := all.find? (·.typeName == name)

def ofStreamType? (name : String) : Option ElementType := all.find? (·.streamType == name)

/-- The element type that a class or a primitive keyword stands for. -/
def ofName? (name : String) : Option ElementType :=
  match name with
  | "int" => some int
  | "long" => some long
  | "double" => some double
  | _ => ofTypeName? name

/-- The element type of that name, or the failure that there is none. -/
def parse (name : String) : Except TraceError ElementType :=
  match ofName? name with
  | some t => .ok t
  | none => .error (.valueInstantiation name "no stream element type for this class")

/-- The descriptor of `peek` on the stream interface. -/
def peekDescriptor : ElementType → String
  | object => "(Ljava/util/function/Consumer;)Ljava/util/stream/Stream;"
  | int => "(Ljava/util/function/IntConsumer;)Ljava/util/stream/IntStream;"
  | long => "(Ljava/util/function/LongConsumer;)Ljava/util/stream/LongStream;"
  | double => "(Ljava/util/function/DoubleConsumer;)Ljava/util/stream/DoubleStream;"

/-- The helper method that turns a map of collected elements into an array of its keys and an
array of its values. -/
def formatMethod : ElementType → String
  | object => "formatObjectMap"
  | int => "formatIntMap"
  | long => "formatLongMap"
  | double => "formatDoubleMap"

end ElementType

structure TextRange where
  start : UInt32 := 0
  stop : UInt32 := 0
  deriving Repr, DecidableEq, Inhabited

structure StreamCall where
  name : String
  arguments : List String
  declaringType : String
  typeBefore : Option ElementType
  typeAfter : Option ElementType
  textRange : TextRange := {}
  deriving Repr, DecidableEq

/-- The call that consumes the stream, with the erased type of its result. -/
structure TerminalCall extends StreamCall where
  resultType : String
  deriving Repr, DecidableEq

def TerminalCall.returnsVoid (t : TerminalCall) : Bool := t.resultType == "void"

/-- Where the stream comes from: a local variable that holds it, or a call that produces it. -/
inductive Qualifier where
  | var (text name : String)
  | call (text : String) (signature : MethodSignature)
  deriving Repr, DecidableEq

def Qualifier.text : Qualifier → String
  | var text _ => text
  | call text _ => text

structure StreamChain where
  text : String
  qualifier : Qualifier
  intermediate : List StreamCall
  terminal : TerminalCall
  deriving Repr, DecidableEq

namespace StreamChain

/-- The first call made on the source stream. -/
def firstCall (c : StreamChain) : StreamCall := c.intermediate.head?.getD c.terminal.toStreamCall

/-- The type of the elements of the source stream. -/
def sourceElement (c : StreamChain) : Option ElementType := c.firstCall.typeBefore

def hasSourceCall (c : StreamChain) : Bool :=
  match c.qualifier with
  | .var _ _ => false
  | .call _ _ => true

end StreamChain

end StreamTrace
