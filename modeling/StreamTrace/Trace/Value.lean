import StreamTrace.Jdwp.Value

/-!
# Traces

What a trace yields: for every call the elements that entered and left it, each with the logical
time at which it was seen, and how the evaluation ended.
-/

namespace StreamTrace

/-- A value read back from the debuggee. Objects that are not strings stay references. -/
inductive TraceValue where
  | null
  | boolean (v : Bool)
  | byte (v : Int8)
  | char (v : UInt16)
  | short (v : Int16)
  | int (v : Int32)
  | long (v : Int64)
  | float (bits : UInt32)
  | double (bits : UInt64)
  | string (s : String)
  | object (typeName : String) (id : ObjectId)
  deriving Repr, DecidableEq

/-- An element seen at logical time `time`. -/
structure TracedValue where
  time : Int32
  value : TraceValue
  deriving Repr, DecidableEq

structure StageTrace where
  call : String
  before : List TracedValue
  after : List TracedValue
  deriving Repr, DecidableEq

/-- What the consuming call reported besides the elements that entered it. -/
inductive TerminalPayload where
  | none
  /-- The answer of a test of all elements. -/
  | matched (result : TraceValue)
  | optional (present : Bool) (value : TraceValue)
  /-- The logical time at which a collection was complete. -/
  | collection (time : Int32)
  deriving Repr, DecidableEq

inductive Outcome where
  | returned (v : TraceValue)
  | thrown (v : TraceValue)
  | void
  deriving Repr, DecidableEq

def Outcome.isThrown : Outcome → Bool
  | thrown _ => true
  | returned _ => false
  | void => false

/-- The trace of a whole chain: one stage per call, the consuming call last. -/
structure ChainTrace where
  stages : List StageTrace
  terminal : TerminalPayload
  outcome : Outcome
  elapsedMs : Int64
  deriving Repr, DecidableEq

/-- The first stage of a call with that name. -/
def ChainTrace.stage? (t : ChainTrace) (call : String) : Option StageTrace :=
  t.stages.find? (·.call == call)

end StreamTrace
