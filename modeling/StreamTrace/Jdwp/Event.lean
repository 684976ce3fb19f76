import StreamTrace.Jdwp.Value

/-!
# Events and descriptions

What the virtual machine tells about itself: its events, with the requests that ask for them, and
its classes, methods, variables and frames.
-/

namespace StreamTrace

/-! The numbers of the kinds of events. -/
namespace EventKind

def singleStep : UInt8 := 1
def breakpoint : UInt8 := 2
def exception : UInt8 := 4
def classPrepare : UInt8 := 8
def methodEntry : UInt8 := 40
def methodExit : UInt8 := 41
def methodExitWithReturnValue : UInt8 := 42
def vmStart : UInt8 := 90
def vmDeath : UInt8 := 99

end EventKind

/-- Only the thread that raised the event is suspended by it. -/
def suspendEventThread : UInt8 := 1

namespace StepSize

def min : UInt32 := 0
def line : UInt32 := 1

end StepSize

namespace StepDepth

def into : UInt32 := 0
def across : UInt32 := 1
def out : UInt32 := 2

end StepDepth

/-- Invocation option: the other threads stay suspended meanwhile. -/
def invokeSingleThreaded : UInt32 := 1

inductive Event where
  | singleStep (request : RequestId) (thread : ThreadId) (location : Location)
  | breakpoint (request : RequestId) (thread : ThreadId) (location : Location)
  | exception (request : RequestId) (thread : ThreadId) (location : Location)
      (exception : ObjectId) (catchLocation : Option Location)
  | methodEntry (request : RequestId) (thread : ThreadId) (location : Location)
  | methodExit (request : RequestId) (thread : ThreadId) (location : Location)
  | methodExitWithValue (request : RequestId) (thread : ThreadId) (location : Location)
      (value : Value)
  | classPrepare (request : RequestId) (thread : ThreadId) (typeTag : UInt8) (typeId : TypeId)
      (signature : String) (status : UInt32)
  | vmStart (request : RequestId) (thread : ThreadId)
  | vmDeath
  deriving Repr, DecidableEq

namespace Event

def request? : Event → Option RequestId
  | singleStep r _ _ => some r
  | breakpoint r _ _ => some r
  | exception r _ _ _ _ => some r
  | methodEntry r _ _ => some r
  | methodExit r _ _ => some r
  | methodExitWithValue r _ _ _ => some r
  | classPrepare r _ _ _ _ _ => some r
  | vmStart r _ => some r
  | vmDeath => none

def thread? : Event → Option ThreadId
  | singleStep _ t _ => some t
  | breakpoint _ t _ => some t
  | exception _ t _ _ _ => some t
  | methodEntry _ t _ => some t
  | methodExit _ t _ => some t
  | methodExitWithValue _ t _ _ => some t
  | classPrepare _ t _ _ _ _ => some t
  | vmStart _ t => some t
  | vmDeath => none

def kind : Event → UInt8
  | singleStep _ _ _ => EventKind.singleStep
  | breakpoint _ _ _ => EventKind.breakpoint
  | exception _ _ _ _ _ => EventKind.exception
  | methodEntry _ _ _ => EventKind.methodEntry
  | methodExit _ _ _ => EventKind.methodExit
  | methodExitWithValue _ _ _ _ => EventKind.methodExitWithReturnValue
  | classPrepare _ _ _ _ _ _ => EventKind.classPrepare
  | vmStart _ _ => EventKind.vmStart
  | vmDeath => EventKind.vmDeath

end Event

/-- A condition on the events that a request asks for. -/
inductive EventModifier where
  | count (n : UInt32)
  | threadOnly (thread : ThreadId)
  | classOnly (typeId : TypeId)
  | classMatch (pattern : String)
  | locationOnly (location : Location)
  /-- Exceptions of one type, or of any type when it is 0. -/
  | exceptionOnly (typeId : TypeId) (caught uncaught : Bool)
  | step (thread : ThreadId) (size depth : UInt32)
  deriving Repr, DecidableEq

structure ClassInfo where
  typeTag : UInt8
  typeId : TypeId
  signature : String
  status : UInt32
  deriving Repr, DecidableEq, Inhabited

structure MethodInfo where
  methodId : MethodId
  name : String
  signature : String
  modifiers : UInt32
  deriving Repr, DecidableEq, Inhabited

/-- The modifier bit of static methods. -/
def staticModifier : UInt32 := 8

def MethodInfo.isStatic (m : MethodInfo) : Bool := m.modifiers &&& staticModifier != 0

/-- A local variable: it lives in `slot` over `length` code indices from `codeIndex` on. -/
structure VariableInfo where
  codeIndex : UInt64
  name : String
  signature : String
  length : UInt32
  slot : Nat
  deriving Repr, DecidableEq, Inhabited

/-- Whether the variable is in scope at `index`. The end of its range is a 64-bit number. -/
def VariableInfo.isVisibleAt (v : VariableInfo) (index : UInt64) : Bool :=
  v.codeIndex ≤ index && index < v.codeIndex + v.length.toUInt64

structure FrameInfo where
  frameId : FrameId
  location : Location
  deriving Repr, DecidableEq, Inhabited

/-- How an invocation ended: with a value, or with an exception. -/
structure InvokeOutcome where
  value : Value
  exception : Option ObjectId
  deriving Repr, DecidableEq, Inhabited

end StreamTrace
