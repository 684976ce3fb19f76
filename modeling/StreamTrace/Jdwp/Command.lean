import StreamTrace.Jdwp.Event
import StreamTrace.Jdwp.Error

/-!
# Debug commands

The commands that a debugger sends to a virtual machine and the kind of reply each one has. What a
command means is not fixed here: a simulated machine, a connection or an arbitrary target may
answer it.
-/

namespace StreamTrace

inductive Command where
  | classesBySignature (signature : String)
  | resumeVm
  | createString (text : String)
  | typeSignature (type : TypeId)
  | typeLoader (type : TypeId)
  | typeMethods (type : TypeId)
  | typeInterfaces (type : TypeId)
  | superclass (type : TypeId)
  | invokeStatic (type : TypeId) (thread : ThreadId) (method : MethodId) (args : List Value)
      (options : UInt32)
  | newInstance (type : TypeId) (thread : ThreadId) (method : MethodId) (args : List Value)
      (options : UInt32)
  | newArray (type : TypeId) (length : Int)
  | reflectedType (classObject : ObjectId)
  | variableTable (type : TypeId) (method : MethodId)
  | objectType (object : ObjectId)
  | invokeVirtual (object : ObjectId) (thread : ThreadId) (type : TypeId) (method : MethodId)
      (args : List Value) (options : UInt32)
  | disableCollection (object : ObjectId)
  | enableCollection (object : ObjectId)
  | stringValue (string : ObjectId)
  | arrayLength (array : ObjectId)
  | arrayValues (array : ObjectId) (first length : Int)
  | setArrayValues (array : ObjectId) (first : Int) (values : List Value)
  | resumeThread (thread : ThreadId)
  | frames (thread : ThreadId) (start length : Int)
  | frameCount (thread : ThreadId)
  | forceReturn (thread : ThreadId) (value : Value)
  | slotValues (thread : ThreadId) (frame : FrameId) (slots : List (Nat × String))
  | setSlots (thread : ThreadId) (frame : FrameId) (values : List (Nat × Value))
  | setRequest (kind policy : UInt8) (modifiers : List EventModifier)
  | clearRequest (kind : UInt8) (request : RequestId)
  deriving Repr, DecidableEq

namespace Command

/-- What a successful reply holds. -/
def Reply : Command → Type
  | classesBySignature _ => List ClassInfo
  | resumeVm => Unit
  | createString _ => ObjectId
  | typeSignature _ => String
  | typeLoader _ => ObjectId
  | typeMethods _ => List MethodInfo
  | typeInterfaces _ => List TypeId
  | superclass _ => Option TypeId
  | invokeStatic _ _ _ _ _ => InvokeOutcome
  | newInstance _ _ _ _ _ => InvokeOutcome
  | newArray _ _ => ObjectId
  | reflectedType _ => TypeId
  | variableTable _ _ => Nat × List VariableInfo
  | objectType _ => TypeId
  | invokeVirtual _ _ _ _ _ _ => InvokeOutcome
  | disableCollection _ => Unit
  | enableCollection _ => Unit
  | stringValue _ => String
  | arrayLength _ => Int
  | arrayValues _ _ _ => List Value
  | setArrayValues _ _ _ => Unit
  | resumeThread _ => Unit
  | frames _ _ _ => List FrameInfo
  | frameCount _ => Int
  | forceReturn _ _ => Unit
  | slotValues _ _ _ => List Value
  | setSlots _ _ _ => Unit
  | setRequest _ _ _ => RequestId
  | clearRequest _ _ => Unit

/-- What comes back for a command: its reply or an error. -/
abbrev Answer (c : Command) : Type := Except JdwpError c.Reply

/-- Whether the command runs code of the debuggee on its thread. -/
def isInvocation : Command → Bool
  | invokeStatic _ _ _ _ _ => true
  | newInstance _ _ _ _ _ => true
  | invokeVirtual _ _ _ _ _ _ => true
  | _ => false

end Command

end StreamTrace
