import StreamTrace.Debugger.Program
import StreamTrace.Jvm.MethodSignature
import StreamTrace.Table

/-!
# Method breakpoints

Event requests for the entry and the exit of methods. A breakpoint is made for a method that the
debuggee has loaded; enabling it sets a request for its thread and class, and consuming it removes
the request for good. Requests also report methods of subclasses, so an event is checked against
the signature.
-/

namespace StreamTrace

inductive MethodEdge where
  | entry
  | exit
  deriving Repr, DecidableEq

def MethodEdge.number : MethodEdge → UInt8
  | entry => EventKind.methodEntry
  | exit => EventKind.methodExitWithReturnValue

/-- A breakpoint on a loaded method. `request` is its request while one is set. -/
structure Breakpoint where
  kind : MethodEdge
  signature : MethodSignature
  declaringType : TypeId
  method : MethodInfo
  request : Option RequestId := none
  consumed : Bool := false
  deriving Repr, DecidableEq

namespace Breakpoint

def isEnabled (b : Breakpoint) : Bool := b.request.isSome

def isStatic (b : Breakpoint) : Bool := b.method.isStatic

/-- The slots in which the method finds its arguments. -/
def slots (b : Breakpoint) : List (Nat × String) := b.signature.argumentSlots b.isStatic

end Breakpoint

/-- The methods of the types that breakpoints were asked about. -/
abbrev MethodLists := Table TypeId (List MethodInfo)

namespace Breakpoint

open Routine

/-- The methods that a type declares, asked for once. -/
def methodsOf (type : TypeId) : Routine TraceError MethodLists (List MethodInfo) := do
  match (← get).get? type with
  | some methods => return methods
  | none =>
    let methods : List MethodInfo ← command (.typeMethods type)
    modify (·.set type methods)
    return methods

/-- A breakpoint on the method with that signature, not enabled yet. -/
def create (kind : MethodEdge) (signature : MethodSignature) :
    Routine TraceError MethodLists Breakpoint := do
  let missing : TraceError :=
    .methodNotFound signature.name signature.descriptor signature.containingClass
  let classes : List ClassInfo ←
    command (.classesBySignature (typeNameToSignature signature.containingClass))
  match classes.head? with
  | none => throw missing
  | some c =>
    let methods ← methodsOf c.typeId
    match methods.find? fun m => signature.Matches m.name m.signature with
    | none => throw missing
    | some method => return { kind, signature, declaringType := c.typeId, method }

/-- Whether the method at that location is the breakpoint's. -/
def isAt (b : Breakpoint) (l : Location) : Routine TraceError MethodLists Bool := do
  let methods ← methodsOf l.typeId
  match methods.find? (·.methodId == l.methodId) with
  | none => return false
  | some m => return b.signature.Matches m.name m.signature

/-- Sets the request, once and not after the breakpoint was consumed. -/
def enable (thread : ThreadId) : Routine TraceError Breakpoint Unit := do
  let b ← get
  if b.isEnabled || b.consumed then return ()
  else
    let request : RequestId ←
      command (.setRequest b.kind.number suspendEventThread
        [.threadOnly thread, .classOnly b.declaringType])
    modify fun b => { b with request := some request }

/-- Clears the request. It counts as cleared even if the debuggee refuses. -/
def disable : Routine TraceError Breakpoint Unit := do
  let b ← get
  match b.request with
  | none => return ()
  | some request =>
    set { b with request := none }
    command (.clearRequest b.kind.number request)

/-- Clears the request and never sets it again. -/
def consume : Routine TraceError Breakpoint Unit := do
  modify fun b => { b with consumed := true }
  disable

variable {σ : Type}

/-- The arguments of the method in its frame. -/
def readArguments (b : Breakpoint) (thread : ThreadId) (frame : FrameId) :
    Routine TraceError σ (List Value) :=
  if b.slots.isEmpty then return [] else command (.slotValues thread frame b.slots)

/-- The slots whose values change, with the new values. -/
def changedSlots (b : Breakpoint) (old new : List Value) : List (Nat × Value) :=
  (b.slots.zip (old.zip new)).filterMap fun ((slot, _), before, after) =>
    if before.same after then none else some (slot, after)

/-- Writes the arguments that differ into the method's frame. -/
def writeArguments (b : Breakpoint) (thread : ThreadId) (frame : FrameId)
    (old new : List Value) : Routine TraceError σ Unit :=
  let changed := b.changedSlots old new
  if changed.isEmpty then return ()
  else commandOr (.setSlots thread frame changed) TraceError.ofWrite

end Breakpoint

/-! ## Other requests -/

namespace EventRequest

open Routine

variable {σ : Type}

/-- Makes the method on top return this value. -/
def forceReturn (thread : ThreadId) (v : Value) : Routine TraceError σ Unit :=
  commandOr (.forceReturn thread v) TraceError.ofWrite

/-- Asks for all exceptions on the thread, caught or not. -/
def guard (thread : ThreadId) : Routine TraceError σ RequestId :=
  command (.setRequest EventKind.exception suspendEventThread
    [.exceptionOnly 0 true true, .threadOnly thread])

def step (thread : ThreadId) (size depth : UInt32) : Routine TraceError σ RequestId :=
  command (.setRequest EventKind.singleStep suspendEventThread [.step thread size depth, .count 1])

/-- Asks for the next line outside the method on top. -/
def stepOut (thread : ThreadId) : Routine TraceError σ RequestId :=
  step thread StepSize.line StepDepth.out

/-- Asks for the next instruction, wherever it is. -/
def stepInto (thread : ThreadId) : Routine TraceError σ RequestId :=
  step thread StepSize.min StepDepth.into

def clear (kind : UInt8) (request : RequestId) : Routine TraceError σ Unit :=
  command (.clearRequest kind request)

end EventRequest

end StreamTrace
